import Mathlib.Data.List.GetD
import Mathlib.Data.List.TakeWhile
import Mathlib.Tactic.IntervalCases
import ArmControl.Plants.DmSpec

/-!
# The server reads the motor list that the configuration states

* `numeral_hexUpper`, `strtol_hex02`, `parseId_hex02`   a printed id reads back;
* `motorItem_fields`     an entry of the list, by its fields;
* `Carried`              what the entry carries: id, Master ID, type and the three axes, with the gains of the type;
* `parseMotor_carried`, `parseMotors_carried`   the parser recovers it;
* `dm_wire_agreement`    **both sides agree, exactly when no motor states gain ranges of its own.**
-/

namespace ArmControl.Plants.Dm

/-! ## printed numbers -/

theorem digitVal_digit (n : ℕ) (h : n < 16) : digitVal (Char.toUpper (Nat.digitChar n)) = some n := by
  interval_cases n <;> rfl

theorem numeral_append (base : ℕ) (s t : Text) : numeral base (s ++ t) =
    t.foldl (fun n c => n * base + (digitVal c).getD 0) (numeral base s) := List.foldl_append

theorem hexUpper_eq (n : ℕ) : hexUpper n =
    (if n < 16 then [] else hexUpper (n / 16)) ++ [Char.toUpper (Nat.digitChar (n % 16))] := by
  unfold hexUpper
  rw [Nat.toDigits_eq_if (by norm_num)]
  split
  case isTrue h =>
    rw [Nat.mod_eq_of_lt h]
    rfl
  case isFalse h => rw [List.map_append, List.map_singleton]

theorem numeral_hexUpper (n : ℕ) : numeral 16 (hexUpper n) = n := by
  induction n using Nat.strong_induction_on with
  | _ n ih =>
    rw [hexUpper_eq, numeral_append]
    have hmod : n % 16 < 16 := Nat.mod_lt n (by norm_num)
    show numeral 16 (if n < 16 then [] else hexUpper (n / 16)) * 16 + (digitVal _).getD 0 = n
    rw [digitVal_digit _ hmod]
    split
    case isTrue h => exact (Nat.zero_add _).trans (Nat.mod_eq_of_lt h)
    case isFalse h =>
      rw [ih (n / 16) (by omega)]
      exact Nat.div_add_mod' n 16

theorem isDigit_hexUpper (n : ℕ) : ∀ c ∈ hexUpper n, isDigit 16 c = true := by
  induction n using Nat.strong_induction_on with
  | _ n ih =>
    intro c hc
    rw [hexUpper_eq] at hc
    rcases List.mem_append.mp hc with hc | hc
    · split at hc
      case isTrue h => cases hc
      case isFalse h => exact ih (n / 16) (by omega) c hc
    · have hmod : n % 16 < 16 := Nat.mod_lt n (by norm_num)
      rw [List.mem_singleton.mp hc]
      unfold isDigit
      rw [digitVal_digit _ hmod]
      exact decide_eq_true hmod

theorem hexUpper_ne_nil (n : ℕ) : hexUpper n ≠ [] := by
  rw [hexUpper_eq]
  exact List.append_ne_nil_of_right_ne_nil _ (List.cons_ne_nil _ _)

theorem numeral_zeros (k : ℕ) (t : Text) : numeral 16 (List.replicate k '0' ++ t) = numeral 16 t := by
  have hzero : numeral 16 (List.replicate k '0') = 0 := by
    induction k with
    | zero => rfl
    | succ k ih =>
      rw [List.replicate_succ', numeral_append, ih]
      rfl
  rw [numeral_append, hzero]
  rfl

/-- the digits that `%02X` prints of a number that is not negative -/
theorem hex02_digits (n : ℕ) : numeral 16 (hex02 n) = n ∧ (∀ c ∈ hex02 n, isDigit 16 c = true) ∧ hex02 n ≠ [] := by
  have h : hex02 n = List.replicate (2 - (hexUpper n).length) '0' ++ hexUpper n := by
    show (if (n : ℤ) < 0 then _ else List.leftpad 2 '0' (hexUpper n)) = _
    rw [if_neg (Int.natCast_nonneg n).not_gt]
    rfl
  rw [h]
  refine ⟨(numeral_zeros _ _).trans (numeral_hexUpper n), fun c hc => ?_, ?_⟩
  · rcases List.mem_append.mp hc with hc | hc
    · rw [(List.mem_replicate.mp hc).2]
      rfl
    · exact isDigit_hexUpper n c hc
  · exact List.append_ne_nil_of_right_ne_nil _ (hexUpper_ne_nil n)

theorem readDigits_all {base : ℕ} {t : Text} (h : ∀ c ∈ t, isDigit base c = true) : readDigits base t = (numeral base t, []) := by
  unfold readDigits
  rw [List.takeWhile_eq_self_iff.mpr h, List.dropWhile_eq_nil_iff.mpr h]

/-- a printed id reads back; a negative one is not read to its end -/
theorem strtol_hex02 (n : ℤ) : strtol ('0' :: 'x' :: hex02 n) = some (n, []) ∨
    ∃ r ≠ [], strtol ('0' :: 'x' :: hex02 n) = some (0, r) := by
  rcases lt_or_ge n 0 with hn | hn
  · right
    have h : hex02 n = '-' :: List.leftpad 1 '0' (hexUpper n.natAbs) := if_pos hn
    rw [h]
    refine ⟨'x' :: '-' :: List.leftpad 1 '0' (hexUpper n.natAbs), List.cons_ne_nil _ _, ?_⟩
    rfl
  · left
    obtain ⟨k, rfl⟩ := Int.eq_ofNat_of_zero_le hn
    obtain ⟨hval, hdig, hne⟩ := hex02_digits k
    obtain ⟨c, t, ht⟩ := List.exists_cons_of_ne_nil hne
    have hread : readNumber ('0' :: 'x' :: hex02 k) = some (k, []) := by
      rw [ht] at hdig ⊢
      show (if ('x' = 'x' ∨ 'x' = 'X') ∧ isDigit 16 c = true then some (readDigits 16 (c :: t)) else _) = _
      rw [if_pos ⟨.inl rfl, hdig c List.mem_cons_self⟩, readDigits_all hdig, ← ht, hval]
    show (readNumber ('0' :: 'x' :: hex02 k)).map _ = _
    rw [hread]
    rfl

theorem parseId_hex02 {n lo hi v : ℤ} (h : parseId ('0' :: 'x' :: hex02 n) lo hi = some v) : v = n := by
  unfold parseId at h
  rcases strtol_hex02 n with hs | ⟨r, hr, hs⟩
  · rw [hs] at h
    dsimp only at h
    split_ifs at h
    exact (Option.some.inj h).symm
  · rw [hs] at h
    dsimp only at h
    have : r.isEmpty = false := List.isEmpty_eq_false_iff.mpr hr
    simp [this] at h

/-- none of the separators is a digit, so a printed id has none -/
theorem separator_not_mem_hex02 {c : Char} (n : ℤ) (h : isDigit 16 c = false) (h0 : c ≠ '-') (h1 : c ≠ 'x') :
    c ∉ '0' :: 'x' :: hex02 n := by
  intro hc
  have hmem : c ∈ hex02 n := by
    rcases List.mem_cons.mp hc with rfl | hc
    · cases h
    · exact (List.mem_cons.mp hc).resolve_left h1
  rcases lt_or_ge n 0 with hn | hn
  · have heq : hex02 n = '-' :: (List.replicate (1 - (hexUpper n.natAbs).length) '0' ++ hexUpper n.natAbs) := if_pos hn
    rw [heq] at hmem
    rcases List.mem_append.mp ((List.mem_cons.mp hmem).resolve_left h0) with hc | hc
    · rw [(List.mem_replicate.mp hc).2] at h
      cases h
    · rw [isDigit_hexUpper _ c hc] at h
      cases h
  · obtain ⟨k, rfl⟩ := Int.eq_ofNat_of_zero_le hn
    rw [(hex02_digits k).2.1 c hmem] at h
    cases h

/-! ## what an entry carries -/

/-- the keys of the gain ranges, which no entry carries -/
def LimitKey.isGain : LimitKey → Bool
  | .kpMin | .kpMax | .kdMin | .kdMax => true
  | _ => false

theorem LimitKey.axis_of_not_gain {k : LimitKey} (h : k.isGain = false) : ∃ a : Axis, k = a.min ∨ k = a.max := by
  cases k with
  | positionMin => exact ⟨.position, .inl rfl⟩
  | positionMax => exact ⟨.position, .inr rfl⟩
  | velocityMin => exact ⟨.velocity, .inl rfl⟩
  | velocityMax => exact ⟨.velocity, .inr rfl⟩
  | torqueMin => exact ⟨.torque, .inl rfl⟩
  | torqueMax => exact ⟨.torque, .inr rfl⟩
  | kpMin => cases h
  | kpMax => cases h
  | kdMin => cases h
  | kdMax => cases h

/-- the motor keeps the gain ranges of its type, which are those of every type -/
def GainsOfType (c : DmMotorConfig) : Prop := ∀ k : LimitKey, k.isGain = true → c.limits k = dmMotorLimits k

/-- the range of an axis is symmetric -/
def Symmetric (l : DmMotorLimits) (a : Axis) : Prop := ∃ q : ℚ, 0 < q ∧ l a.max = .fin q ∧ l a.min = .fin (-q)

/-- the motor has the id, the Master ID, the type and the axes of the configuration, and the gains of its type -/
structure Carried (c : DmMotorConfig) (m : Motor) : Prop where
  id : m.id = c.canId
  mst : m.mst = c.masterId.getD 0
  type : m.type = c.motorType
  axes : ∀ a : Axis, Symmetric c.limits a ∧ m.lim.get a.min = c.limits a.min ∧ m.lim.get a.max = c.limits a.max
  gains : ∀ k : LimitKey, k.isGain = true → m.lim.get k = dmMotorLimits k

theorem eq_of_value_eq {x y : Value} (h : x.eq y = true) {q : ℚ} (hx : x = .fin q) : y = .fin q := by
  subst hx
  cases y with
  | nan => cases h
  | inf neg => cases neg <;> cases h
  | fin r =>
    rw [Value.eq_fin] at h
    rw [of_decide_eq_true h]

theorem wireRange_ok {c : DmMotorConfig} {a : Axis} {v : Value} (h : wireRange c a = .ok v) :
    v = c.limits a.max ∧ Symmetric c.limits a := by
  unfold wireRange at h
  dsimp only at h
  split_ifs at h with hok
  simp only [Bool.and_eq_true] at hok
  obtain ⟨⟨⟨⟨-, hfin⟩, hmin⟩, heq⟩, -⟩ := hok
  refine ⟨(Except.ok.inj h).symm, ?_⟩
  cases hhi : c.limits a.max with
  | nan =>
    rw [hhi] at hfin
    cases hfin
  | inf neg =>
    rw [hhi] at hfin
    cases hfin
  | fin q =>
    rw [hhi, Value.le_fin] at hmin
    have hpos : 0 < q := lt_of_lt_of_le (by unfold floatMin; positivity) (of_decide_eq_true hmin)
    refine ⟨q, hpos, hhi, ?_⟩
    rw [hhi] at heq
    cases hlo : c.limits a.min with
    | nan =>
      rw [hlo] at heq
      cases heq
    | inf neg =>
      rw [hlo] at heq
      cases neg <;> cases heq
    | fin r =>
      rw [hlo, Value.fin_neg, Value.eq_fin] at heq
      rw [of_decide_eq_true heq]

/-! ## an entry and its fields -/

/-- the fields of an entry -/
def itemFields (d : Decimals) (m : DmMotorConfig) (ids ranges : Bool) : List Text :=
  ('0' :: 'x' :: hex02 m.canId) :: m.motorType ::
    ((if ids then ['0' :: 'x' :: hex02 (m.masterId.getD 0)] else []) ++
      (if ranges then [d.print (m.limits .positionMax), d.print (m.limits .velocityMax), d.print (m.limits .torqueMax)] else []))

/-- the ranges of an entry are printed -/
def rangesPrinted (m : DmMotorConfig) (defaults : DmMotorLimits) : Bool :=
  overridden defaults (m.limits .positionMax) (m.limits .velocityMax) (m.limits .torqueMax)

theorem motorItem_fields {d : Decimals} {m : DmMotorConfig} {item : Text} (h : motorItem d m = .ok item) :
    ∃ defaults, defaultLimitsByType m.motorType = some defaults ∧ (∀ a : Axis, Symmetric m.limits a) ∧
      item = [':'].intercalate
        (itemFields d m (m.masterId.isSome || rangesPrinted m defaults) (rangesPrinted m defaults)) := by
  unfold motorItem at h
  cases hd : defaultLimitsByType m.motorType with
  | none =>
    rw [hd] at h
    cases h
  | some defaults =>
    rw [hd] at h
    cases hp : wireRange m .position with
    | error e =>
      rw [hp] at h
      cases h
    | ok p =>
      cases hv : wireRange m .velocity with
      | error e =>
        rw [hp, hv] at h
        cases h
      | ok v =>
        cases ht : wireRange m .torque with
        | error e =>
          rw [hp, hv, ht] at h
          cases h
        | ok t =>
          rw [hp, hv, ht] at h
          obtain ⟨rfl, hsp⟩ := wireRange_ok hp
          obtain ⟨rfl, hsv⟩ := wireRange_ok hv
          obtain ⟨rfl, hst⟩ := wireRange_ok ht
          refine ⟨defaults, rfl, fun a => by cases a <;> assumption, ?_⟩
          rw [← Except.ok.inj h]
          show _ ++ (if (m.masterId.isSome || rangesPrinted m defaults) = true then _ else _) ++
            (if rangesPrinted m defaults = true then _ else _) = _
          cases hr : rangesPrinted m defaults with
          | true =>
            rw [Bool.or_true]
            simp [itemFields, List.intercalate_cons_cons, List.intercalate_singleton, Axis.max]
          | false =>
            rw [Bool.or_false]
            cases m.masterId.isSome <;>
              simp [itemFields, List.intercalate_cons_cons, List.intercalate_singleton]

/-- the printed number reads back, and no separator is in it -/
structure Decimals.Inverse (d : Decimals) (v : Value) : Prop where
  read : d.strtod (d.print v) = some v
  comma : ',' ∉ d.print v
  colon : ':' ∉ d.print v

theorem type_of_default {type : Text} {l : DmMotorLimits} (h : defaultLimitsByType type = some l) :
    type = type4310 ∨ type = type4310p ∨ type = type4340 ∨ type = type4340p := by
  unfold defaultLimitsByType at h
  split_ifs at h with h1 h2 h3 h4
  · exact .inl h1
  · exact .inr (.inl h2)
  · exact .inr (.inr (.inl h3))
  · exact .inr (.inr (.inr h4))

theorem separator_not_mem_type {type : Text} {l : DmMotorLimits} (h : defaultLimitsByType type = some l) {c : Char}
    (hc : c = ',' ∨ c = ':') : c ∉ type := by
  rcases type_of_default h with rfl | rfl | rfl | rfl <;> rcases hc with rfl | rfl <;> decide

/-- no field of an entry has a separator in it -/
theorem separator_not_mem_field {d : Decimals} {m : DmMotorConfig} {defaults : DmMotorLimits}
    (hd : defaultLimitsByType m.motorType = some defaults) (hinv : ∀ a : Axis, d.Inverse (m.limits a.max))
    {c : Char} (hc : c = ',' ∨ c = ':') (ids ranges : Bool) : ∀ f ∈ itemFields d m ids ranges, c ∉ f := by
  have hhex : ∀ n : ℤ, c ∉ '0' :: 'x' :: hex02 n := fun n =>
    separator_not_mem_hex02 n (by rcases hc with rfl | rfl <;> rfl) (by rcases hc with rfl | rfl <;> decide)
      (by rcases hc with rfl | rfl <;> decide)
  have hprint : ∀ a : Axis, c ∉ d.print (m.limits a.max) := fun a => by
    rcases hc with rfl | rfl
    · exact (hinv a).comma
    · exact (hinv a).colon
  intro f hf
  rcases List.mem_cons.mp hf with rfl | hf
  · exact hhex m.canId
  rcases List.mem_cons.mp hf with rfl | hf
  · exact separator_not_mem_type hd hc
  rcases List.mem_append.mp hf with hf | hf
  · split at hf
    case isTrue =>
      rw [List.mem_singleton.mp hf]
      exact hhex _
    case isFalse => cases hf
  · split at hf
    case isTrue =>
      rcases List.mem_cons.mp hf with rfl | hf
      · exact hprint .position
      rcases List.mem_cons.mp hf with rfl | hf
      · exact hprint .velocity
      rw [List.mem_singleton.mp hf]
      exact hprint .torque
    case isFalse => cases hf

/-! ## reading an entry -/

/-- the limits of a type are the same on both sides -/
theorem limitsFor_get {type : Text} {l : DmMotorLimits} {lim : DmLimits} (hd : defaultLimitsByType type = some l)
    (hl : limitsFor type = some lim) : lim.get = l := by
  rcases type_of_default hd with rfl | rfl | rfl | rfl
  all_goals
    obtain rfl := Option.some.inj hd
    obtain rfl := Option.some.inj hl
    funext k
    cases k <;> rfl

/-- a type's gain ranges are the defaults of the class, and its axes are symmetric -/
theorem defaults_gain {type : Text} {l : DmMotorLimits} (hd : defaultLimitsByType type = some l) :
    (∀ k : LimitKey, k.isGain = true → l k = dmMotorLimits k) ∧ ∀ a : Axis, l a.min = -l a.max := by
  rcases type_of_default hd with rfl | rfl | rfl | rfl
  all_goals
    obtain rfl := Option.some.inj hd
    constructor
    · intro k hk
      cases k <;> first | rfl | cases hk
    · intro a
      cases a <;> decide +kernel

theorem halfRange_read {d : Decimals} {i : ℕ} {v r : Value} (hinv : d.Inverse v) (h : halfRange d i (d.print v) = some r) :
    r = v := by
  unfold halfRange at h
  rw [hinv.read] at h
  dsimp only [Option.bind_eq_bind, Option.bind_some] at h
  split_ifs at h
  · exact (Option.some.inj h).symm
  · exact (Option.some.inj h).symm

theorem orError_ok {α : Type} {text : Text} {x : Option α} {a : α} (h : orError text x = .ok a) : x = some a := by
  cases x with
  | none => cases h
  | some b => exact congrArg some (Except.ok.inj h)

/-- the parts of an entry that is read -/
theorem parseMotor_parts {d : Decimals} {item : Text} {m : Motor} (h : parseMotor d item = .ok m) :
    ∃ lim, parseId ((item.splitOn ':').getD 0 []) 1 15 = some m.id ∧ parseMst item (item.splitOn ':') = .ok m.mst ∧
      limitsFor ((item.splitOn ':').getD 1 []) = some lim ∧ parseRanges d item (item.splitOn ':') lim = .ok m.lim ∧
      m.type = (item.splitOn ':').getD 1 [] := by
  unfold parseMotor at h
  dsimp only at h
  split_ifs at h with hlen
  cases hid : parseId ((item.splitOn ':').getD 0 []) 1 15 with
  | none =>
    rw [hid] at h
    cases h
  | some id =>
    cases hmst : parseMst item (item.splitOn ':') with
    | error e =>
      rw [hid, hmst] at h
      cases h
    | ok mst =>
      cases hlim : limitsFor ((item.splitOn ':').getD 1 []) with
      | none =>
        rw [hid, hmst, hlim] at h
        cases h
      | some lim =>
        cases hr : parseRanges d item (item.splitOn ':') lim with
        | error e =>
          rw [hid, hmst, hlim] at h
          dsimp only [orError, bind, Except.bind] at h
          rw [hr] at h
          cases h
        | ok lim' =>
          rw [hid, hmst, hlim] at h
          dsimp only [orError, bind, Except.bind] at h
          rw [hr] at h
          obtain rfl := Except.ok.inj h
          exact ⟨lim, rfl, rfl, rfl, hr, rfl⟩

theorem parseMotor_carried {d : Decimals} {c : DmMotorConfig} {item : Text} {m : Motor}
    (hinv : ∀ a : Axis, d.Inverse (c.limits a.max)) (hitem : motorItem d c = .ok item) (h : parseMotor d item = .ok m) :
    Carried c m := by
  obtain ⟨defaults, hd, hsym, rfl⟩ := motorItem_fields hitem
  have hsplit : ∀ ids ranges, ([':'].intercalate (itemFields d c ids ranges)).splitOn ':' = itemFields d c ids ranges :=
    fun ids ranges => List.splitOn_intercalate ':' (separator_not_mem_field hd hinv (.inr rfl) ids ranges) (List.cons_ne_nil _ _)
  obtain ⟨lim, hid, hmst, hlim, hranges, htype⟩ := parseMotor_parts h
  rw [hsplit] at hid hmst hlim hranges htype
  have hget : lim.get = defaults := limitsFor_get hd hlim
  have hgain := (defaults_gain hd).1
  have hneg : ∀ a : Axis, c.limits a.min = -c.limits a.max := fun a => by
    obtain ⟨q, -, hmax, hmin⟩ := hsym a
    rw [hmax, hmin, Value.fin_neg]
  cases hr : rangesPrinted c defaults with
  | true =>
    rw [hr, Bool.or_true] at hmst hranges
    have hpar : parseId ('0' :: 'x' :: hex02 (c.masterId.getD 0)) 0 0x7ff = some m.mst := orError_ok hmst
    obtain ⟨p, hp, hrest⟩ := Option.bind_eq_some_iff.mp (orError_ok hranges)
    obtain ⟨v, hv, hrest⟩ := Option.bind_eq_some_iff.mp hrest
    obtain ⟨t, ht, hrest⟩ := Option.bind_eq_some_iff.mp hrest
    have hp' : p = c.limits .positionMax := halfRange_read (hinv .position) hp
    have hv' : v = c.limits .velocityMax := halfRange_read (hinv .velocity) hv
    have ht' : t = c.limits .torqueMax := halfRange_read (hinv .torque) ht
    have hm : m.lim = { lim with pLo := -p, pHi := p, vLo := -v, vHi := v, tLo := -t, tHi := t } := (Option.some.inj hrest).symm
    refine ⟨parseId_hex02 hid, parseId_hex02 hpar, htype, fun a => ⟨hsym a, ?_⟩, fun k hk => ?_⟩
    · rw [hneg a, hm, hp', hv', ht']
      cases a <;> exact ⟨rfl, rfl⟩
    · rw [hm, ← hgain k hk, ← hget]
      cases k <;> first | rfl | cases hk
  | false =>
    rw [hr, Bool.or_false] at hmst hranges
    have hkeep : m.lim = lim := by
      cases hs : c.masterId.isSome <;> rw [hs] at hranges <;> exact (Except.ok.inj hranges).symm
    have hmaster : m.mst = c.masterId.getD 0 := by
      cases hs : c.masterId.isSome with
      | true =>
        rw [hs] at hmst
        exact parseId_hex02 (orError_ok hmst)
      | false =>
        rw [hs] at hmst
        have hnone : c.masterId = none := Option.isSome_eq_false_iff.mp hs |> Option.isNone_iff_eq_none.mp
        rw [hnone]
        exact (Except.ok.inj hmst).symm
    have hsame : ∀ a : Axis, defaults a.max = c.limits a.max := by
      intro a
      obtain ⟨q, -, hmax, -⟩ := hsym a
      unfold rangesPrinted overridden at hr
      simp only [Bool.or_eq_false_iff, Bool.not_eq_false'] at hr
      obtain ⟨⟨hp, hv⟩, ht⟩ := hr
      rw [hmax]
      cases a with
      | position => exact eq_of_value_eq hp hmax
      | velocity => exact eq_of_value_eq hv hmax
      | torque => exact eq_of_value_eq ht hmax
    refine ⟨parseId_hex02 hid, hmaster, htype, fun a => ⟨hsym a, ?_⟩, fun k hk => ?_⟩
    · rw [hkeep, hget, (defaults_gain hd).2 a, hsame a, hneg a]
      exact ⟨rfl, rfl⟩
    · rw [hkeep, hget]
      exact hgain k hk

/-! ## the list -/

theorem mem_intercalate {α : Type} {x sep : α} {ls : List (List α)} (h : x ∈ [sep].intercalate ls) :
    x = sep ∨ ∃ l ∈ ls, x ∈ l := by
  induction ls with
  | nil => cases h
  | cons l ls ih =>
    cases ls with
    | nil =>
      rw [List.intercalate_singleton] at h
      exact .inr ⟨l, List.mem_singleton_self l, h⟩
    | cons l' ls =>
      rw [List.intercalate_cons_cons] at h
      rcases List.mem_append.mp h with h | h
      · rcases List.mem_append.mp h with h | h
        · exact .inr ⟨l, List.mem_cons_self, h⟩
        · exact .inl (List.mem_singleton.mp h)
      · rcases ih h with h | ⟨k, hk, hx⟩
        · exact .inl h
        · exact .inr ⟨k, List.mem_cons_of_mem _ hk, hx⟩

theorem comma_not_mem_item {d : Decimals} {c : DmMotorConfig} {item : Text} (hinv : ∀ a : Axis, d.Inverse (c.limits a.max))
    (h : motorItem d c = .ok item) : ',' ∉ item := by
  obtain ⟨defaults, hd, -, rfl⟩ := motorItem_fields h
  intro hc
  rcases mem_intercalate hc with hc | ⟨f, hf, hc⟩
  · exact absurd hc (by decide)
  · exact separator_not_mem_field hd hinv (.inl rfl) _ _ f hf hc

theorem comma_not_mem_items {d : Decimals} {cs : List DmMotorConfig} {items : List Text}
    (hinv : ∀ c ∈ cs, ∀ a : Axis, d.Inverse (c.limits a.max))
    (hitems : List.Forall₂ (fun c item => motorItem d c = .ok item) cs items) : ∀ item ∈ items, ',' ∉ item := by
  induction hitems with
  | nil => nofun
  | @cons c item cs items hitem _ ih =>
    obtain ⟨hc, hcs⟩ := List.forall_mem_cons.mp hinv
    exact List.forall_mem_cons.mpr ⟨comma_not_mem_item hc hitem, ih hcs⟩

theorem parseMotors_carried {d : Decimals} {cs : List DmMotorConfig} {items : List Text} {acc motors : List Motor}
    (hinv : ∀ c ∈ cs, ∀ a : Axis, d.Inverse (c.limits a.max))
    (hitems : List.Forall₂ (fun c item => motorItem d c = .ok item) cs items) (h : parseMotors d acc items = .ok motors) :
    ∃ new, motors = acc ++ new ∧ List.Forall₂ Carried cs new := by
  induction hitems generalizing acc with
  | nil => exact ⟨[], by rw [List.append_nil, ← Except.ok.inj h], .nil⟩
  | @cons c item cs items hitem _ ih =>
    unfold parseMotors at h
    cases hm : parseMotor d item with
    | error e =>
      rw [hm] at h
      cases h
    | ok m =>
      rw [hm] at h
      dsimp only [bind, Except.bind] at h
      split_ifs at h
      obtain ⟨new, rfl, hnew⟩ := ih (fun c' hc' => hinv c' (List.mem_cons_of_mem _ hc')) h
      refine ⟨m :: new, (List.append_assoc acc [m] new).trans rfl, .cons ?_ hnew⟩
      exact parseMotor_carried (hinv c List.mem_cons_self) hitem hm

theorem forall₂_of_mapM {d : Decimals} {cs : List DmMotorConfig} {items : List Text} (h : cs.mapM (motorItem d) = .ok items) :
    List.Forall₂ (fun c item => motorItem d c = .ok item) cs items := by
  induction cs generalizing items with
  | nil =>
    rw [List.mapM_nil] at h
    rw [← Except.ok.inj h]
    exact .nil
  | cons c cs ih =>
    rw [List.mapM_cons] at h
    cases hc : motorItem d c with
    | error e =>
      rw [hc] at h
      cases h
    | ok item =>
      cases hcs : cs.mapM (motorItem d) with
      | error e =>
        rw [hc, hcs] at h
        cases h
      | ok rest =>
        rw [hc, hcs] at h
        rw [← Except.ok.inj h]
        exact .cons hc (ih hcs)

/-! ## a semicolon is not read over -/

theorem mem_dropWhile {α : Type} {p : α → Bool} {x : α} {l : List α} (hx : x ∈ l) (hp : p x = false) : x ∈ l.dropWhile p := by
  rw [← List.takeWhile_append_dropWhile (p := p) (l := l)] at hx
  rcases List.mem_append.mp hx with h | h
  · rw [List.mem_takeWhile_imp h] at hp
    cases hp
  · exact h

theorem semicolon_readNumber {t r : Text} {n : ℕ} (h : readNumber t = some (n, r)) (hs : ';' ∈ t) : ';' ∈ r := by
  have hread : ∀ (base : ℕ) (u : Text), some (readDigits base u) = some (n, r) → ';' ∈ u → ';' ∈ r := fun base u hu hs => by
    have hr : u.dropWhile (isDigit base) = r := congrArg Prod.snd (Option.some.inj hu)
    rw [← hr]
    exact mem_dropWhile hs rfl
  unfold readNumber at h
  split at h
  · rename_i x c u
    split_ifs at h with hx
    · refine hread 16 _ h ?_
      rcases List.mem_cons.mp hs with hs | hs
      · cases hs
      rcases List.mem_cons.mp hs with hs | hs
      · rcases hx.1 with rfl | rfl <;> cases hs
      exact hs
    · exact hread 8 _ h hs
  · split_ifs at h
    all_goals exact hread _ _ h hs
  · cases hs

theorem semicolon_strtol {t r : Text} {n : ℤ} (h : strtol t = some (n, r)) (hs : ';' ∈ t) : ';' ∈ r := by
  have hdrop : ';' ∈ t.dropWhile isSpace := mem_dropWhile hs rfl
  unfold strtol at h
  split at h
  · rename_i u hu
    rw [hu] at hdrop
    obtain ⟨⟨k, r'⟩, hk, hr⟩ := Option.map_eq_some_iff.mp h
    obtain rfl : r' = r := congrArg Prod.snd hr
    exact semicolon_readNumber hk ((List.mem_cons.mp hdrop).resolve_left (by decide))
  · rename_i u hu
    rw [hu] at hdrop
    obtain ⟨⟨k, r'⟩, hk, hr⟩ := Option.map_eq_some_iff.mp h
    obtain rfl : r' = r := congrArg Prod.snd hr
    exact semicolon_readNumber hk ((List.mem_cons.mp hdrop).resolve_left (by decide))
  · obtain ⟨⟨k, r'⟩, hk, hr⟩ := Option.map_eq_some_iff.mp h
    obtain rfl : r' = r := congrArg Prod.snd hr
    exact semicolon_readNumber hk hdrop

theorem semicolon_parseId {t : Text} {lo hi v : ℤ} (h : parseId t lo hi = some v) : ';' ∉ t := by
  intro hs
  unfold parseId at h
  cases hr : strtol t with
  | none =>
    rw [hr] at h
    cases h
  | some r =>
    obtain ⟨n, rest⟩ := r
    have hrest : rest.isEmpty = false := List.isEmpty_eq_false_iff.mpr (List.ne_nil_of_mem (semicolon_strtol hr hs))
    rw [hr] at h
    simp [hrest] at h

theorem semicolon_type {type : Text} {lim : DmLimits} (h : limitsFor type = some lim) : ';' ∉ type := by
  unfold limitsFor at h
  split_ifs at h with h1 h2 h3
  · rw [h1]
    decide
  · rw [h2]
    decide
  · rcases h3 with rfl | rfl <;> decide

theorem semicolon_halfRange {d : Decimals} (hclean : ∀ t v, d.strtod t = some v → ';' ∉ t) {i : ℕ} {t : Text} {r : Value}
    (h : halfRange d i t = some r) : ';' ∉ t := by
  obtain ⟨v, hv, -⟩ := Option.bind_eq_some_iff.mp h
  exact hclean t v hv

/-- an entry that is read has no semicolon -/
theorem semicolon_parseMotor {d : Decimals} (hclean : ∀ t v, d.strtod t = some v → ';' ∉ t) {item : Text} {m : Motor}
    (h : parseMotor d item = .ok m) : ';' ∉ item := by
  obtain ⟨lim, hid, hmst, hlim, hranges, -⟩ := parseMotor_parts h
  have hlen : (item.splitOn ':').length = 2 ∨ (item.splitOn ':').length = 3 ∨ (item.splitOn ':').length = 6 := by
    unfold parseMotor at h
    dsimp only at h
    split_ifs at h with hlen
    omega
  intro hs
  rw [← @List.intercalate_splitOn _ item _ _ ':'] at hs
  rcases mem_intercalate hs with hs | ⟨f, hf, hs⟩
  · exact absurd hs (by decide)
  obtain ⟨i, hi, rfl⟩ := List.getElem_of_mem hf
  rw [← List.getD_eq_getElem (d := []) _ hi] at hs
  generalize item.splitOn ':' = fields at *
  have hrange3 : 3 ≤ i → ∃ r, halfRange d (i - 3) (fields.getD i []) = some r := by
    intro h3
    have h6 : fields.length = 6 := by omega
    unfold parseRanges at hranges
    rw [if_pos h6] at hranges
    obtain ⟨p, hp, hrest⟩ := Option.bind_eq_some_iff.mp (orError_ok hranges)
    obtain ⟨v, hv, hrest⟩ := Option.bind_eq_some_iff.mp hrest
    obtain ⟨t, ht, -⟩ := Option.bind_eq_some_iff.mp hrest
    have hcase : i = 3 ∨ i = 4 ∨ i = 5 := by omega
    rcases hcase with rfl | rfl | rfl
    · exact ⟨p, hp⟩
    · exact ⟨v, hv⟩
    · exact ⟨t, ht⟩
  rcases Nat.lt_or_ge i 3 with h3 | h3
  · interval_cases i
    · exact semicolon_parseId hid hs
    · exact semicolon_type hlim hs
    · unfold parseMst at hmst
      rw [if_pos (by omega)] at hmst
      exact semicolon_parseId (orError_ok hmst) hs
  · obtain ⟨r, hr⟩ := hrange3 h3
    exact semicolon_halfRange hclean hr hs

theorem semicolon_parseMotors {d : Decimals} (hclean : ∀ t v, d.strtod t = some v → ';' ∉ t) {items : List Text}
    {acc motors : List Motor} (h : parseMotors d acc items = .ok motors) : ∀ item ∈ items, ';' ∉ item := by
  induction items generalizing acc with
  | nil => nofun
  | cons item items ih =>
    unfold parseMotors at h
    cases hm : parseMotor d item with
    | error e =>
      rw [hm] at h
      cases h
    | ok m =>
      rw [hm] at h
      dsimp only [bind, Except.bind] at h
      split_ifs at h
      exact List.forall_mem_cons.mpr ⟨semicolon_parseMotor hclean hm, ih h⟩

/-- what the parser accepts is an interface and a list without semicolons -/
theorem parseSpec_parts {d : Decimals} (hclean : ∀ t v, d.strtod t = some v → ';' ∉ t) {spec ifc : Text} {motors : List Motor}
    (h : parseSpec d spec = .ok (ifc, motors)) : ∃ rest, spec = ifc ++ ';' :: rest ∧ ';' ∉ ifc ∧ ';' ∉ rest ∧ rest ≠ [] ∧
      parseMotors d [] (rest.splitOn ',') = .ok motors := by
  have hno : ';' ∉ spec.takeWhile (· != ';') := fun hs => by
    have hne := List.mem_takeWhile_imp hs
    cases hne
  unfold parseSpec at h
  dsimp only at h
  split_ifs at h
  split at h
  · rename_i s c rest hdrop
    have hs : s = ';' := by
      have hhead := List.head_dropWhile_not (· != ';') (by rw [hdrop]; exact List.cons_ne_nil _ _)
      simpa [hdrop] using hhead
    cases hm : parseMotors d [] ((c :: rest).splitOn ',') with
    | error e =>
      rw [hm] at h
      cases h
    | ok ms =>
      rw [hm] at h
      dsimp only [bind, Except.bind] at h
      split_ifs at h
      have hpair := Except.ok.inj h
      obtain rfl : spec.takeWhile (· != ';') = ifc := congrArg Prod.fst hpair
      obtain rfl : ms = motors := congrArg Prod.snd hpair
      refine ⟨c :: rest, ?_, hno, fun hrest => ?_, List.cons_ne_nil c rest, hm⟩
      · rw [hs] at hdrop
        rw [← hdrop]
        exact List.takeWhile_append_dropWhile.symm
      · rw [← @List.intercalate_splitOn _ (c :: rest) _ _ ','] at hrest
        rcases mem_intercalate hrest with hc | ⟨item, hitem, hc⟩
        · exact absurd hc (by decide)
        · exact semicolon_parseMotors hclean hm item hitem hc
  · cases h

/-- **The parser recovers the motors of the configuration**, and its interface. -/
theorem parseSpec_carried {V : Type} [Yaml V] {d : Decimals} (hclean : ∀ t v, d.strtod t = some v → ';' ∉ t)
    {cfg : RobotConfig V} {iface : Option Text} {cs : List DmMotorConfig} (hcs : parseMotorConfigs cfg = some cs)
    (hinv : ∀ c ∈ cs, ∀ a : Axis, d.Inverse (c.limits a.max)) {spec ifc : Text} {motors : List Motor}
    (hspec : dmSpecFromConfig d cfg iface = .ok spec) (hparse : parseSpec d spec = .ok (ifc, motors)) :
    interfaceOf cfg iface = .ok ifc ∧ List.Forall₂ Carried cs motors := by
  obtain ⟨rest, hrest, hifc, hno, hne, hmotors⟩ := parseSpec_parts hclean hparse
  unfold dmSpecFromConfig at hspec
  rw [hcs] at hspec
  cases hi : interfaceOf cfg iface with
  | error e =>
    rw [hi] at hspec
    cases hspec
  | ok own =>
    cases hm : cs.mapM (motorItem d) with
    | error e =>
      rw [hi] at hspec
      dsimp only [orRaise, bind, Except.bind] at hspec
      rw [hm] at hspec
      cases hspec
    | ok items =>
      rw [hi] at hspec
      dsimp only [orRaise, bind, Except.bind] at hspec
      rw [hm] at hspec
      have htext : own ++ ';' :: [','].intercalate items = spec :=
        (List.append_assoc own [';'] _).symm.trans (Except.ok.inj hspec)
      rw [hrest] at htext
      obtain ⟨rfl, -, rfl⟩ := (List.append_cons_inj_of_notMem hifc hno).mp htext.symm
      refine ⟨rfl, ?_⟩
      have hitems := forall₂_of_mapM hm
      have hcomma : ∀ item ∈ items, ',' ∉ item := comma_not_mem_items hinv hitems
      have hnonempty : items ≠ [] := by
        rintro rfl
        exact hne rfl
      rw [List.splitOn_intercalate ',' hcomma hnonempty] at hmotors
      obtain ⟨new, rfl, hnew⟩ := parseMotors_carried hinv hitems hmotors
      exact hnew

/-! ## agreement -/

/-- the motor of the server is the configured one, and both codecs agree on it -/
structure WireAgrees (c : DmMotorConfig) (m : Motor) : Prop where
  id : m.id = c.canId
  mst : m.mst = c.masterId.getD 0
  type : m.type = c.motorType
  ranges : ∀ k : LimitKey, m.lim.get k = c.limits k
  frame : ∀ cmd bytes, packMitControlFrame cmd c.limits = some bytes → packMit cmd m.lim = some bytes
  reply : ∀ data, data.length = 8 → decodeMitReply data c.limits = some ((decodeMit data m.lim).map MitReply.state)
  steps : ∀ f : Field, Quantised (m.lim.get f.range.1) (m.lim.get f.range.2.1) f.range.2.2

theorem Carried.encodable {c : DmMotorConfig} {m : Motor} (h : Carried c m) : m.lim.Encodable := by
  have haxis : ∀ a : Axis, Encodes (m.lim.get a.min) (m.lim.get a.max) := fun a => by
    obtain ⟨⟨q, hq, hmax, hmin⟩, hlo, hhi⟩ := h.axes a
    exact ⟨-q, q, hlo.trans hmin, hhi.trans hmax, by linarith⟩
  intro f
  cases f with
  | position => exact haxis .position
  | velocity => exact haxis .velocity
  | torque => exact haxis .torque
  | kp => exact ⟨0, 500, h.gains .kpMin rfl, h.gains .kpMax rfl, by norm_num⟩
  | kd => exact ⟨0, 5, h.gains .kdMin rfl, h.gains .kdMax rfl, by norm_num⟩

theorem Carried.agrees_iff {c : DmMotorConfig} {m : Motor} (h : Carried c m) : WireAgrees c m ↔ GainsOfType c := by
  constructor
  · intro ha k hk
    rw [← ha.ranges k]
    exact h.gains k hk
  · intro hg
    have hranges : ∀ k : LimitKey, m.lim.get k = c.limits k := fun k => by
      cases hk : k.isGain with
      | true => rw [h.gains k hk, hg k hk]
      | false =>
        obtain ⟨a, rfl | rfl⟩ := LimitKey.axis_of_not_gain hk
        · exact (h.axes a).2.1
        · exact (h.axes a).2.2
    have hl : c.limits = m.lim.get := funext fun k => (hranges k).symm
    refine ⟨h.id, h.mst, h.type, hranges, fun cmd bytes => packMit_of_packMitControlFrame hl h.encodable, fun data _ =>
      decodeMitReply_eq hl h.encodable data, fun f => quantised_of_encodes (h.encodable f) ?_ ?_⟩
    · cases f <;> decide
    · cases f <;> decide

/-- **The server's motors agree with the configuration, exactly when no motor states gain ranges of its own.** -/
theorem dm_wire_agreement {V : Type} [Yaml V] (d : Decimals) (hclean : ∀ t v, d.strtod t = some v → ';' ∉ t)
    (cfg : RobotConfig V) (iface : Option Text) (cs : List DmMotorConfig) (hcs : parseMotorConfigs cfg = some cs)
    (hinv : ∀ c ∈ cs, ∀ a : Axis, d.Inverse (c.limits a.max)) (spec ifc : Text) (motors : List Motor)
    (hspec : dmSpecFromConfig d cfg iface = .ok spec) (hparse : parseSpec d spec = .ok (ifc, motors)) :
    List.Forall₂ WireAgrees cs motors ↔ ∀ c ∈ cs, GainsOfType c := by
  have hall := (parseSpec_carried hclean hcs hinv hspec hparse).2
  clear hcs hinv hspec hparse
  induction hall with
  | nil => exact ⟨fun _ => nofun, fun _ => .nil⟩
  | cons hcarried _ ih =>
    rw [List.forall₂_cons, List.forall_mem_cons]
    exact and_congr hcarried.agrees_iff ih

/-! ## a gain range of its own -/

/-- the configuration values of the runs below -/
inductive Node where
  | num (q : ℚ)
  | text (t : Text)
  | map (entries : List (String × Node))
  | list (elements : List Node)

instance : Yaml Node where
  truthy
    | .num q => decide (q ≠ 0)
    | .text t => !t.isEmpty
    | .map es => !es.isEmpty
    | .list es => !es.isEmpty
  isNone _ := false
  int
    | .num q => pyInt (.fin q)
    | _ => none
  float
    | .num q => some (.fin q)
    | _ => none
  str
    | .num q => decimal q.num.natAbs
    | .text t => t
    | _ => []
  items
    | .map es => some es
    | _ => none
  elements
    | .list es => some es
    | _ => none
  index
    | .list es, i => es[i]?
    | _, _ => none

/-- the printed numbers of the runs below -/
def printed : List (Value × Text) :=
  [(.fin (25 / 2), ['1', '2', '.', '5']), (.fin 10, ['1', '0']), (.fin 28, ['2', '8']), (.fin 6, ['6']),
    (.fin 5, ['5']), (.fin 3, ['3'])]

def printedDecimals : Decimals where
  print v := ((printed.find? (·.1 = v)).map Prod.snd).getD []
  strtod t := (printed.find? (·.2 = t)).map Prod.fst

theorem printedDecimals_clean (t : Text) (v : Value) (h : printedDecimals.strtod t = some v) : ';' ∉ t := by
  obtain ⟨e, he, -⟩ := Option.map_eq_some_iff.mp h
  have hall : ∀ e ∈ printed, ';' ∉ e.2 := by decide +kernel
  have ht : e.2 = t := by simpa using List.find?_some he
  exact ht ▸ hall e (List.mem_of_find?_eq_some he)

theorem printedDecimals_inverse : ∀ e ∈ printed, printedDecimals.Inverse e.1 := by
  have h : ∀ e ∈ printed, printedDecimals.strtod (printedDecimals.print e.1) = some e.1 ∧
      ',' ∉ printedDecimals.print e.1 ∧ ':' ∉ printedDecimals.print e.1 := by decide +kernel
  exact fun e he => ⟨(h e he).1, (h e he).2.1, (h e he).2.2⟩

/-- a configuration with one motor -/
def oneMotor (entry : List (String × Node)) : RobotConfig Node where
  numMotors := 1
  motorIds := []
  motorNames := []
  raw := [("motors", .list [.map entry])]

/-- a motor that may take a stiffness up to 600 -/
def stiffEntry : List (String × Node) :=
  [("can_id", .num 1), ("motor_type", .text type4340), ("limits", .map [("kp_max", .num 600)])]

def stiffMotor : DmMotorConfig where
  name := ['m', 'o', 't', 'o', 'r', '_', '0']
  canId := 1
  motorType := type4340
  masterId := none
  limits := Function.update limits4340 .kpMax (.fin 600)

theorem parseMotorConfigs_stiff : parseMotorConfigs (oneMotor stiffEntry) = some [stiffMotor] := by
  rfl

def stiffSpec : Text := ['c', 'a', 'n', '0', ';', '0', 'x', '0', '1', ':', '4', '3', '4', '0']

/-- a motor whose ranges are not its type's, with a Master ID of its own -/
def rangedEntry : List (String × Node) :=
  [("can_id", .num 2), ("motor_type", .text type4310p), ("master_id", .num 18),
    ("limits", .map [("position_min", .num (-6)), ("position_max", .num 6), ("velocity_min", .num (-5)),
      ("velocity_max", .num 5), ("torque_min", .num (-3)), ("torque_max", .num 3)])]

def rangedMotor : DmMotorConfig where
  name := ['m', 'o', 't', 'o', 'r', '_', '0']
  canId := 2
  motorType := type4310p
  masterId := some 18
  limits := Function.update (Function.update (Function.update (Function.update (Function.update (Function.update limits4310p
    .positionMin (.fin (-6))) .positionMax (.fin 6)) .velocityMin (.fin (-5))) .velocityMax (.fin 5))
    .torqueMin (.fin (-3))) .torqueMax (.fin 3)

theorem parseMotorConfigs_ranged : parseMotorConfigs (oneMotor rangedEntry) = some [rangedMotor] := by
  rfl

/-- `can1;0x02:4310p:0x12:6:5:3` -/
def rangedSpec : Text :=
  ['c', 'a', 'n', '1', ';', '0', 'x', '0', '2', ':', '4', '3', '1', '0', 'p', ':', '0', 'x', '1', '2', ':', '6', ':', '5', ':', '3']

def rangedLimits : DmLimits :=
  { lim4310P with
    pLo := .fin (-6), pHi := .fin 6, vLo := .fin (-5), vHi := .fin 5, tLo := .fin (-3), tHi := .fin 3 }

/-- the ranges and the Master ID reach the server -/
theorem dm_wire_agreement_ranged :
    List.Forall₂ WireAgrees [rangedMotor] [⟨2, 18, type4310p, rangedLimits⟩] ↔ ∀ c ∈ [rangedMotor], GainsOfType c := by
  refine dm_wire_agreement printedDecimals printedDecimals_clean (oneMotor rangedEntry) (some ['c', 'a', 'n', '1']) [rangedMotor]
    parseMotorConfigs_ranged ?_ rangedSpec ['c', 'a', 'n', '1'] _ (by decide +kernel) (by decide +kernel)
  intro c hc a
  rw [List.mem_singleton.mp hc]
  cases a with
  | position => exact printedDecimals_inverse (.fin 6, ['6']) (by decide +kernel)
  | velocity => exact printedDecimals_inverse (.fin 5, ['5']) (by decide +kernel)
  | torque => exact printedDecimals_inverse (.fin 3, ['3']) (by decide +kernel)

/-- the stiffness range of the motor does not reach the server -/
theorem gain_range_lost :
    ¬ ∀ (d : Decimals), (∀ t v, d.strtod t = some v → ';' ∉ t) → ∀ (cfg : RobotConfig Node) (iface : Option Text) cs,
      parseMotorConfigs cfg = some cs → (∀ c ∈ cs, ∀ a : Axis, d.Inverse (c.limits a.max)) → ∀ spec ifc motors,
      dmSpecFromConfig d cfg iface = .ok spec → parseSpec d spec = .ok (ifc, motors) → List.Forall₂ WireAgrees cs motors := by
  intro h
  have hinv : ∀ c ∈ [stiffMotor], ∀ a : Axis, printedDecimals.Inverse (c.limits a.max) := by
    rintro c hc a
    rw [List.mem_singleton.mp hc]
    cases a with
    | position => exact printedDecimals_inverse (.fin (25 / 2), ['1', '2', '.', '5']) (by decide +kernel)
    | velocity => exact printedDecimals_inverse (.fin 10, ['1', '0']) (by decide +kernel)
    | torque => exact printedDecimals_inverse (.fin 28, ['2', '8']) (by decide +kernel)
  have hspec : dmSpecFromConfig printedDecimals (oneMotor stiffEntry) none = .ok stiffSpec := by decide +kernel
  have hparse : parseSpec printedDecimals stiffSpec = .ok (['c', 'a', 'n', '0'], [⟨1, 0, type4340, lim4340⟩]) := by
    decide +kernel
  have hall := h printedDecimals printedDecimals_clean (oneMotor stiffEntry) none [stiffMotor] parseMotorConfigs_stiff hinv
    stiffSpec _ _ hspec hparse
  have hkp := ((List.forall₂_cons.mp hall).1).ranges .kpMax
  exact absurd hkp (by decide +kernel)

end ArmControl.Plants.Dm
