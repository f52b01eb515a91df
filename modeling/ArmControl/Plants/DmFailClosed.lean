import ArmControl.Plants.DmBackend
import ArmControl.Lib.Since
import Mathlib.Data.List.Nodup

/-!
# The DM backend fails closed

* `Live`, `Backed`           an enabled motor is active, and its last lifecycle frame on the bus is an ENABLE;
* `Sends`                    what a part of a call leaves alone, and the frames that it attempts;
* `Unpowered`                a call that failed: nothing stays enabled, and whoever was enabled was stopped;
* `Preflighted`              nothing was enabled or commanded before the whole batch had passed;
* `backed_step`              one call keeps `Backed`;
* `dm_backend_fails_closed`  every sequence of calls, whatever the bus does.
-/

namespace ArmControl.Plants.Dm
namespace DmBackend

open History

/-- the last lifecycle frame that was sent to the motor is an ENABLE -/
def Live (log : List Sent) (id : ℤ) : Prop :=
  Since (fun _ o => o.id = id ∧ o.kind = .enable ∧ o.ok = true) (fun o => ¬ (o.id = id ∧ o.kind = .disable ∧ o.ok = true)) log

/-- every motor of the mask is active and live -/
def Backed (s : DmBackend) : Prop :=
  ∀ j, has s.enabledMask j = true → has s.activeMask j = true ∧ ∃ m, s.motors[j]? = some m ∧ Live s.log m.id

/-- what a motor is on the bus: its feedback apart -/
def wire (m : BusMotor) : ℤ × DmLimits := (m.id, m.lim)

/-- a part of a call that attempts only frames of the kinds `p`, and changes neither the motors on the bus nor the masks -/
structure Sends (p : Kind → Prop) (s s' : DmBackend) : Prop where
  enabled : s'.enabledMask = s.enabledMask
  active : s'.activeMask = s.activeMask
  motors : s'.motors.map wire = s.motors.map wire
  frames : ∃ e, s'.log = s.log ++ e ∧ ∀ o ∈ e, p o.kind

/-- a motor is stopped by the frames `e`: a zero-gain frame, a DISABLE, and no ENABLE or command after that -/
def Stops (m : BusMotor) (e : List Sent) : Prop :=
  ∃ p a b q, e = p ++ ⟨m.id, .zeroGain, zeroFrame m.lim, a⟩ :: ⟨m.id, .disable, disableFrame, b⟩ :: q ∧
    ∀ o ∈ q, o.kind = .zeroGain ∨ o.kind = .disable

/-- nothing is enabled any more, and whatever was enabled, before the call or in it, was stopped -/
structure Unpowered (s s' : DmBackend) : Prop where
  off : s'.enabledMask = 0
  stopped : ∃ e, s'.log = s.log ++ e ∧ ∀ slot ∈ s.slots,
    (has s.enabledMask slot.2 = true ∨ ∃ o ∈ e, o.id = slot.1.id ∧ o.kind = .enable) →
    (∀ j, s'.lastTau j = .fin 0) ∧ Stops slot.1 e

/-- frames that enable or command are attempted only if the frame of every active motor passed -/
def Preflighted (s s' : DmBackend) (n : ℕ) (fields : ℕ → Command) (slew : Value) : Prop :=
  ∃ e, s'.log = s.log ++ e ∧ ((∃ o ∈ e, o.kind = .enable ∨ o.kind = .command) →
    n = s.motors.length ∧ ∀ slot ∈ s.slots, has s.activeMask slot.2 = true →
      ∃ out torque, packNativeMit slot.1 (fields slot.2) (s.lastTau slot.2) slew = some (.ok (out, torque)))

variable {w : ℕ → Bool} {s s' s'' : DmBackend} {p : Kind → Prop}

/-! ## masks -/

@[simp] theorem has_zero (j : ℕ) : has 0 j = false := BitVec.getLsbD_zero

theorem has_set (mask : Mask) (i j : ℕ) : has (mask ||| bit i) j = (has mask j || decide (i < 32 ∧ i = j)) := by
  unfold has bit
  rw [BitVec.getLsbD_or, BitVec.getLsbD_twoPow]
  simp

theorem has_clear (mask : Mask) (i j : ℕ) : has (mask &&& ~~~ bit i) j = true ↔ has mask j = true ∧ i ≠ j := by
  unfold has bit
  rw [BitVec.getLsbD_and, BitVec.getLsbD_not, BitVec.getLsbD_twoPow]
  constructor
  · intro h
    simp only [Bool.and_eq_true, decide_eq_true_eq, Bool.not_eq_true', Bool.and_eq_false_iff, decide_eq_false_iff_not] at h
    refine ⟨h.1, ?_⟩
    rintro rfl
    rcases h.2.2 with hi | hi
    · exact hi h.2.1
    · exact hi rfl
  · rintro ⟨h, hne⟩
    have hj : j < 32 := BitVec.lt_of_getLsbD h
    simp [h, hj, hne]

/-! ## logs -/

theorem Sends.refl (s : DmBackend) : Sends p s s := ⟨rfl, rfl, rfl, [], by simp, by simp⟩

theorem Sends.trans (h : Sends p s s') (h' : Sends p s' s'') : Sends p s s'' := by
  obtain ⟨e, he, hp⟩ := h.frames
  obtain ⟨e', he', hp'⟩ := h'.frames
  refine ⟨h'.enabled.trans h.enabled, h'.active.trans h.active, h'.motors.trans h.motors, e ++ e', ?_, ?_⟩
  · rw [he', he, List.append_assoc]
  · intro o ho
    rcases List.mem_append.mp ho with ho | ho
    · exact hp o ho
    · exact hp' o ho

theorem Sends.mono {q : Kind → Prop} (h : Sends p s s') (hpq : ∀ k, p k → q k) : Sends q s s' := by
  obtain ⟨e, he, hp⟩ := h.frames
  exact ⟨h.enabled, h.active, h.motors, e, he, fun o ho => hpq _ (hp o ho)⟩

theorem send8_frame (s : DmBackend) (id : ℤ) (kind : Kind) (bytes : List ℕ) :
    (s.send8 w id kind bytes).1.log = s.log ++ [⟨id, kind, bytes, w s.log.length⟩] ∧
    (s.send8 w id kind bytes).1.enabledMask = s.enabledMask ∧ (s.send8 w id kind bytes).1.activeMask = s.activeMask ∧
    (s.send8 w id kind bytes).1.motors = s.motors ∧ (s.send8 w id kind bytes).1.lastTau = s.lastTau ∧
    (s.send8 w id kind bytes).2 = w s.log.length := by
  unfold send8
  dsimp only
  cases w s.log.length <;> exact ⟨rfl, rfl, rfl, rfl, rfl, rfl⟩

theorem send8_sends {id : ℤ} {kind : Kind} {bytes : List ℕ} (hp : p kind) : Sends p s (s.send8 w id kind bytes).1 := by
  obtain ⟨hlog, he, ha, hm, -, -⟩ := send8_frame (w := w) s id kind bytes
  refine ⟨he, ha, by rw [hm], _, hlog, ?_⟩
  intro o ho
  rw [List.mem_singleton.mp ho]
  exact hp

/-- a loop keeps what each of its rounds keeps -/
theorem each_keeps {α : Type} {f : α → DmBackend → DmBackend × Bool} {P : DmBackend → Prop} {l : List α}
    (hf : ∀ a ∈ l, ∀ s, P s → P (f a s).1) (h : P s) : P (each f l s).1 := by
  induction l generalizing s with
  | nil => exact h
  | cons a l ih =>
    unfold each
    dsimp only
    have hround := hf a List.mem_cons_self s h
    split_ifs
    · exact ih (fun a' ha' => hf a' (List.mem_cons_of_mem a ha')) hround
    · exact hround

theorem each_sends {α : Type} {f : α → DmBackend → DmBackend × Bool} (l : List α) (hf : ∀ a s, Sends p s (f a s).1) :
    Sends p s (each f l s).1 :=
  each_keeps (P := fun s' => Sends p s s') (fun a _ s' h => h.trans (hf a s')) (Sends.refl s)

/-! ## enabled motors -/

theorem Live.append {log e : List Sent} {id : ℤ} (h : Live log id) (he : ∀ o ∈ e, ¬ (o.id = id ∧ o.kind = .disable ∧ o.ok = true)) :
    Live (log ++ e) id := by
  obtain ⟨p, a, q, rfl, ha, hq⟩ := h
  refine ⟨p, a, q ++ e, by simp, ha, ?_⟩
  intro o ho
  rcases List.mem_append.mp ho with ho | ho
  · exact hq o ho
  · exact he o ho

theorem mem_slots {slot : BusMotor × ℕ} : slot ∈ s.slots ↔ s.motors[slot.2]? = some slot.1 := by
  unfold slots
  exact List.mem_zipIdx_iff_getElem?

theorem wire_at {ms ms' : List BusMotor} (h : ms'.map wire = ms.map wire) {j : ℕ} {m : BusMotor} (hm : ms[j]? = some m) :
    ∃ m', ms'[j]? = some m' ∧ wire m' = wire m := by
  have hj : (ms'.map wire)[j]? = some (wire m) := by rw [h, List.getElem?_map, hm]; rfl
  rw [List.getElem?_map] at hj
  exact Option.map_eq_some_iff.mp hj

theorem Backed.sends (h : Backed s) (hs : Sends (· ≠ .disable) s s') : Backed s' := by
  intro j hj
  rw [hs.enabled] at hj
  obtain ⟨hactive, m, hm, hlive⟩ := h j hj
  obtain ⟨m', hm', hwire⟩ := wire_at hs.motors hm
  obtain ⟨e, he, hkind⟩ := hs.frames
  refine ⟨hs.active ▸ hactive, m', hm', ?_⟩
  rw [he, show m'.id = m.id from congrArg Prod.fst hwire]
  exact hlive.append fun o ho hc => hkind o ho hc.2.1

theorem backed_of_off (h : s.enabledMask = 0) : Backed s := by
  intro j hj
  rw [h, has_zero] at hj
  exact Bool.noConfusion hj

/-- two slots with one id are one slot -/
theorem slot_unique (hd : (s.motors.map fun m => m.id).Nodup) {i j : ℕ} {m m' : BusMotor} (hm : s.motors[i]? = some m)
    (hm' : s.motors[j]? = some m') (hid : m.id = m'.id) : i = j := by
  have hi : (s.motors.map fun m => m.id)[i]? = some m.id := by rw [List.getElem?_map, hm]; rfl
  have hj : (s.motors.map fun m => m.id)[j]? = some m.id := by rw [List.getElem?_map, hm', hid]; rfl
  obtain ⟨hilt, hi⟩ := List.getElem?_eq_some_iff.mp hi
  obtain ⟨hjlt, hj⟩ := List.getElem?_eq_some_iff.mp hj
  exact (List.Nodup.getElem_inj_iff hd).mp (hi.trans hj.symm)

/-- what a motor that leaves the mask does to the masks, and that it keeps `Backed` -/
theorem drop_keeps (removed : Mask) {slot : BusMotor × ℕ} (hd : (s.motors.map fun m => m.id).Nodup)
    (hslot : s.motors[slot.2]? = some slot.1) (h : Backed s) :
    let r := s.drop w removed slot
    Backed r.1 ∧ r.1.motors = s.motors ∧ r.1.activeMask = s.activeMask ∧
    (∀ j, has r.1.enabledMask j = true → has s.enabledMask j = true) ∧
    (r.2 = true → has removed slot.2 = true → has r.1.enabledMask slot.2 = false) := by
  obtain ⟨hlog, he, ha, hm, -, hz⟩ := send8_frame (w := w) s slot.1.id .zeroGain (zeroFrame slot.1.lim)
  have hzero : Backed (s.send8 w slot.1.id .zeroGain (zeroFrame slot.1.lim)).1 := h.sends (send8_sends Kind.noConfusion)
  unfold drop
  dsimp only
  generalize hs₁ : s.send8 w slot.1.id .zeroGain (zeroFrame slot.1.lim) = r₁ at *
  obtain ⟨hlog', he', ha', hm', -, hd'⟩ := send8_frame (w := w) r₁.1 slot.1.id .disable disableFrame
  generalize hs₂ : r₁.1.send8 w slot.1.id .disable disableFrame = r₂ at *
  split_ifs with hr h₁ h₂
  · exact ⟨hzero, hm, ha, fun j hj => he ▸ hj, fun hc => hc.elim⟩
  · -- the DISABLE did not go out
    rw [Bool.not_eq_true'] at h₂
    refine ⟨?_, hm'.trans hm, ha'.trans ha, fun j hj => he ▸ he' ▸ hj, fun hc => hc.elim⟩
    intro j hj
    rw [he'] at hj
    obtain ⟨hactive, m, hmj, hlive⟩ := hzero j hj
    refine ⟨ha' ▸ hactive, m, hm' ▸ hmj, ?_⟩
    rw [hlog']
    refine hlive.append fun o ho hc => ?_
    rw [List.mem_singleton.mp ho] at hc
    rw [hd'] at h₂
    exact Bool.noConfusion (h₂.symm.trans hc.2.2)
  · refine ⟨?_, hm'.trans hm, ha'.trans ha, ?_, fun _ _ => ?_⟩
    · intro j hj
      obtain ⟨hj, hne⟩ := (has_clear _ _ _).mp hj
      rw [he'] at hj
      obtain ⟨hactive, m, hmj, hlive⟩ := hzero j hj
      refine ⟨ha' ▸ hactive, m, hm' ▸ hmj, ?_⟩
      show Live r₂.1.log m.id
      rw [hlog']
      refine hlive.append fun o ho hc => ?_
      rw [List.mem_singleton.mp ho] at hc
      rw [hm] at hmj
      exact hne (slot_unique hd hslot hmj hc.1)
    · intro j hj
      obtain ⟨hj, -⟩ := (has_clear _ _ _).mp hj
      exact he ▸ he' ▸ hj
    · rw [Bool.eq_false_iff]
      exact fun hc => ((has_clear _ _ _).mp hc).2 rfl
  · exact ⟨h, rfl, rfl, fun _ hj => hj, fun _ hc => absurd hc hr⟩

theorem drops_keep (removed : Mask) (l : List (BusMotor × ℕ)) (hd : (s.motors.map fun m => m.id).Nodup)
    (hl : ∀ slot ∈ l, s.motors[slot.2]? = some slot.1) (h : Backed s) :
    let r := each (drop w removed) l s
    Backed r.1 ∧ r.1.motors = s.motors ∧ r.1.activeMask = s.activeMask ∧
    (∀ j, has r.1.enabledMask j = true → has s.enabledMask j = true) ∧
    (r.2 = true → ∀ slot ∈ l, has removed slot.2 = true → has r.1.enabledMask slot.2 = false) := by
  induction l generalizing s with
  | nil => exact ⟨h, rfl, rfl, fun _ hj => hj, fun _ slot hslot => absurd hslot List.not_mem_nil⟩
  | cons slot l ih =>
    obtain ⟨hb, hm, ha, hmono, hclear⟩ := drop_keeps (w := w) removed hd (hl slot List.mem_cons_self) h
    unfold each
    dsimp only
    split_ifs with hr
    · obtain ⟨hb', hm', ha', hmono', hclear'⟩ := ih (hm ▸ hd) (fun sl hsl => hm ▸ hl sl (List.mem_cons_of_mem slot hsl)) hb
      refine ⟨hb', hm'.trans hm, ha'.trans ha, fun j hj => hmono j (hmono' j hj), fun hok sl hsl hrem => ?_⟩
      rcases List.mem_cons.mp hsl with rfl | hsl
      · rw [Bool.eq_false_iff]
        exact fun hc => Bool.eq_false_iff.mp (hclear hr hrem) (hmono' _ hc)
      · exact hclear' hok sl hsl hrem
    · exact ⟨hb, hm, ha, hmono, fun hc => hc.elim⟩

theorem backed_setActiveMask (hd : (s.motors.map fun m => m.id).Nodup) (h : Backed s) (mask : Mask) (stamp : ℕ) :
    Backed (s.setActiveMask w mask stamp).1 := by
  unfold setActiveMask
  dsimp only
  split_ifs with hrefuse hr
  · exact h
  · obtain ⟨hb, hm, ha, hmono, hclear⟩ := drops_keep (w := w) (s.activeMask &&& ~~~ mask) s.slots hd (fun slot => mem_slots.mp) h
    intro j hj
    obtain ⟨hactive, m, hmj, hlive⟩ := hb j hj
    refine ⟨?_, m, hmj, hlive⟩
    show has mask j = true
    by_contra hno
    -- the motor left the mask, so the loop cleared its bit
    rw [ha] at hactive
    have hremoved : has (s.activeMask &&& ~~~ mask) j = true := by
      unfold has at *
      rw [BitVec.getLsbD_and, BitVec.getLsbD_not, hactive, Bool.eq_false_iff.mpr hno, decide_eq_true (BitVec.lt_of_getLsbD hactive)]
      rfl
    rw [hm] at hmj
    have := hclear hr (m, j) (mem_slots.mpr hmj) hremoved
    rw [this] at hj
    exact Bool.noConfusion hj
  · exact (drops_keep (w := w) (s.activeMask &&& ~~~ mask) s.slots hd (fun slot => mem_slots.mp) h).1

theorem setActiveMask_motors (hd : (s.motors.map fun m => m.id).Nodup) (h : Backed s) (mask : Mask) (stamp : ℕ) :
    (s.setActiveMask w mask stamp).1.motors = s.motors := by
  have hkeep := (drops_keep (w := w) (s.activeMask &&& ~~~ mask) s.slots hd (fun slot => mem_slots.mp) h).2.1
  unfold setActiveMask
  dsimp only
  split_ifs
  · rfl
  · exact hkeep
  · exact hkeep

/-! ## enabling and commanding -/

theorem enableMotor_keeps {slot : BusMotor × ℕ} (hslot : s.motors[slot.2]? = some slot.1) (h : Backed s) :
    Backed (s.enableMotor w slot).1 ∧ (s.enableMotor w slot).1.motors = s.motors ∧ (s.enableMotor w slot).1.activeMask = s.activeMask ∧
    ∃ e, (s.enableMotor w slot).1.log = s.log ++ e ∧ ∀ o ∈ e, o.kind = .enable := by
  obtain ⟨hlog, he, ha, hm, -, hz⟩ := send8_frame (w := w) s slot.1.id .enable enableFrame
  have hsent : Backed (s.send8 w slot.1.id .enable enableFrame).1 := h.sends (send8_sends Kind.noConfusion)
  unfold enableMotor
  dsimp only
  generalize s.send8 w slot.1.id .enable enableFrame = r at *
  have hframes : ∃ e, r.1.log = s.log ++ e ∧ ∀ o ∈ e, o.kind = .enable :=
    ⟨_, hlog, fun o ho => by rw [List.mem_singleton.mp ho]⟩
  split_ifs with hgo hr
  · refine ⟨?_, hm, ha, hframes⟩
    intro j hj
    rw [has_set, Bool.or_eq_true, decide_eq_true_eq] at hj
    by_cases hslotj : slot.2 = j
    · refine ⟨?_, slot.1, ?_, ?_⟩
      · rw [ha, ← hslotj]
        exact (Bool.and_eq_true_iff.mp hgo).1
      · rw [← hslotj]
        exact hm.symm ▸ hslot
      · show Live r.1.log slot.1.id
        rw [hlog]
        exact Since.now ⟨rfl, rfl, hz ▸ hr⟩
    · exact hsent j (hj.resolve_right fun hc => hslotj hc.2)
  · exact ⟨hsent, hm, ha, hframes⟩
  · exact ⟨h, rfl, rfl, [], by simp, by simp⟩

theorem enableAll_keeps (h : Backed s) :
    Backed (s.enableAll w).1 ∧ (s.enableAll w).1.motors = s.motors ∧ (s.enableAll w).1.activeMask = s.activeMask ∧
    ∃ e, (s.enableAll w).1.log = s.log ++ e ∧ ∀ o ∈ e, o.kind = .enable := by
  unfold enableAll
  refine each_keeps (P := fun s' => Backed s' ∧ s'.motors = s.motors ∧ s'.activeMask = s.activeMask ∧
    ∃ e, s'.log = s.log ++ e ∧ ∀ o ∈ e, o.kind = .enable) ?_ ⟨h, rfl, rfl, [], by simp, by simp⟩
  rintro slot hslot s' ⟨hb, hm, ha, e, he, hk⟩
  obtain ⟨hb', hm', ha', e', he', hk'⟩ := enableMotor_keeps (w := w) (hm.symm ▸ mem_slots.mp hslot) hb
  refine ⟨hb', hm'.trans hm, ha'.trans ha, e ++ e', by rw [he', he, List.append_assoc], fun o ho => ?_⟩
  exact (List.mem_append.mp ho).elim (hk o) (hk' o)

theorem sendPacked_sends (batch : List Packed) : Sends (· = .command) s (each (sendPacked w) batch s).1 :=
  each_sends batch fun q s' => show Sends _ s' (s'.send8 w q.motor.id .command q.bytes).1 from send8_sends rfl

theorem preflight_ok {fields : ℕ → Command} {slew : Value} {l : List (BusMotor × ℕ)} {batch : List Packed}
    (h : s.preflight fields slew l = .ok batch) : ∀ slot ∈ l, has s.activeMask slot.2 = true →
      ∃ out torque, packNativeMit slot.1 (fields slot.2) (s.lastTau slot.2) slew = some (.ok (out, torque)) := by
  induction l generalizing batch with
  | nil => exact fun slot hslot => absurd hslot List.not_mem_nil
  | cons slot l ih =>
    unfold preflight at h
    intro sl hsl hactive
    split_ifs at h with ha
    · cases hp : s.packed fields slew slot with
      | error e =>
        rw [hp] at h
        cases h
      | ok r =>
        rw [hp] at h
        obtain ⟨rest, hrest, -⟩ : ∃ rest, s.preflight fields slew l = .ok rest ∧ _ := by
          cases hrest : s.preflight fields slew l with
          | error e =>
            rw [hrest] at h
            cases h
          | ok rest => exact ⟨rest, rfl, trivial⟩
        rcases List.mem_cons.mp hsl with rfl | hsl
        · unfold packed at hp
          cases hpack : packNativeMit sl.1 (fields sl.2) (s.lastTau sl.2) slew with
          | none =>
            rw [hpack] at hp
            cases hp
          | some r' =>
            rw [hpack] at hp
            exact ⟨r.1, r.2, congrArg some hp⟩
        · exact ih hrest sl hsl hactive
    · rcases List.mem_cons.mp hsl with rfl | hsl
      · exact absurd hactive ha
      · exact ih h sl hsl hactive

/-! ## stop -/

theorem Stops.before {m : BusMotor} {e : List Sent} (h : Stops m e) (d : List Sent) : Stops m (d ++ e) := by
  obtain ⟨p, a, b, q, rfl, hq⟩ := h
  exact ⟨d ++ p, a, b, q, by simp, hq⟩

theorem Stops.wire {m m' : BusMotor} {e : List Sent} (h : Stops m e) (hw : wire m = wire m') : Stops m' e := by
  unfold Stops at *
  rw [← show m.id = m'.id from congrArg Prod.fst hw, ← show m.lim = m'.lim from congrArg Prod.snd hw]
  exact h

theorem stopMotors_motors (l : List BusMotor) (r : DmBackend × Bool) : (l.foldl (stopMotor w) r).1.motors = r.1.motors := by
  induction l generalizing r with
  | nil => rfl
  | cons m l ih =>
    rw [List.foldl_cons, ih]
    obtain ⟨-, -, -, hm, -⟩ := send8_frame (w := w) r.1 m.id .zeroGain (zeroFrame m.lim)
    obtain ⟨-, -, -, hm', -⟩ := send8_frame (w := w) (r.1.send8 w m.id .zeroGain (zeroFrame m.lim)).1 m.id .disable disableFrame
    exact hm'.trans hm

theorem stop_wires (s : DmBackend) : (s.stop w).1.motors.map wire = s.motors.map wire :=
  congrArg (List.map wire) (stopMotors_motors (w := w) s.motors (s, true))

theorem stopIfEnabled_wires (s : DmBackend) : (s.stopIfEnabled w).motors.map wire = s.motors.map wire := by
  unfold stopIfEnabled
  split_ifs
  · exact stop_wires s
  · rfl

/-- every motor of the loop is stopped -/
theorem stopMotors_frames (l : List BusMotor) (r : DmBackend × Bool) :
    ∃ e, (l.foldl (stopMotor w) r).1.log = r.1.log ++ e ∧ (∀ o ∈ e, o.kind = .zeroGain ∨ o.kind = .disable) ∧ ∀ m ∈ l, Stops m e := by
  induction l generalizing r with
  | nil => exact ⟨[], by simp, by simp, by simp⟩
  | cons m l ih =>
    obtain ⟨hlog, -⟩ := send8_frame (w := w) r.1 m.id .zeroGain (zeroFrame m.lim)
    obtain ⟨hlog', -⟩ := send8_frame (w := w) (r.1.send8 w m.id .zeroGain (zeroFrame m.lim)).1 m.id .disable disableFrame
    obtain ⟨e, he, hk, hall⟩ := ih (stopMotor w r m)
    have hmotor : (stopMotor w r m).1.log = r.1.log ++ [⟨m.id, .zeroGain, zeroFrame m.lim, w r.1.log.length⟩] ++
        [⟨m.id, .disable, disableFrame, w (r.1.send8 w m.id .zeroGain (zeroFrame m.lim)).1.log.length⟩] := by
      rw [← hlog]
      exact hlog'
    refine ⟨⟨m.id, .zeroGain, zeroFrame m.lim, w r.1.log.length⟩ ::
      ⟨m.id, .disable, disableFrame, w (r.1.send8 w m.id .zeroGain (zeroFrame m.lim)).1.log.length⟩ :: e, ?_, ?_, ?_⟩
    · rw [List.foldl_cons, he, hmotor]
      simp
    · intro o ho
      rcases List.mem_cons.mp ho with rfl | ho
      · exact .inl rfl
      · rcases List.mem_cons.mp ho with rfl | ho
        · exact .inr rfl
        · exact hk o ho
    · intro m' hm'
      rcases List.mem_cons.mp hm' with rfl | hm'
      · exact ⟨[], _, _, e, rfl, hk⟩
      · exact (hall m' hm').before [_, _]

/-- **Whatever was done before in the call, a stop leaves it without power.** -/
theorem unpowered_stop (hmotors : s'.motors.map wire = s.motors.map wire) (hlog : ∃ e, s'.log = s.log ++ e) :
    Unpowered s (s'.stop w).1 := by
  obtain ⟨e, he, -, hall⟩ := stopMotors_frames (w := w) s'.motors (s', true)
  obtain ⟨d, hd⟩ := hlog
  refine ⟨rfl, d ++ e, ?_, fun slot hslot _ => ⟨fun _ => rfl, ?_⟩⟩
  · show (s'.motors.foldl (stopMotor w) (s', true)).1.log = _
    rw [he, hd, List.append_assoc]
  · obtain ⟨m', hm', hw⟩ := wire_at hmotors (mem_slots.mp hslot)
    exact ((hall m' (List.mem_of_getElem? hm')).wire hw).before d

/-- only the masks, the torques and the log matter -/
theorem Unpowered.congr (h : Unpowered s s') (he : s''.enabledMask = s'.enabledMask) (hl : s''.lastTau = s'.lastTau) (hlog : s''.log = s'.log) :
    Unpowered s s'' :=
  ⟨he.trans h.off, hlog.symm ▸ hl.symm ▸ h.stopped⟩

theorem unpowered_of_off (hoff : s.enabledMask = 0) (h : Sends (· = .zeroGain) s s') : Unpowered s s' := by
  obtain ⟨e, he, hk⟩ := h.frames
  refine ⟨h.enabled.trans hoff, e, he, fun slot _ hc => ?_⟩
  rcases hc with hc | ⟨o, ho, -, hen⟩
  · rw [hoff, has_zero] at hc
    exact Bool.noConfusion hc
  · rw [hk o ho] at hen
    exact Kind.noConfusion hen

theorem unpowered_stopIfEnabled : Unpowered s (s.stopIfEnabled w) := by
  unfold stopIfEnabled
  split_ifs with h
  · exact unpowered_stop rfl ⟨[], by simp⟩
  · exact unpowered_of_off (not_not.mp h) (Sends.refl s)

theorem stop_quiet (s : DmBackend) : ∃ e, (s.stop w).1.log = s.log ++ e ∧ ∀ o ∈ e, o.kind = .zeroGain ∨ o.kind = .disable := by
  obtain ⟨e, he, hk, -⟩ := stopMotors_frames (w := w) s.motors (s, true)
  exact ⟨e, he, hk⟩

/-! ## writes -/

theorem Preflighted.of_quiet {n : ℕ} {fields : ℕ → Command} {slew : Value} {e : List Sent} (hlog : s'.log = s.log ++ e)
    (hq : ∀ o ∈ e, o.kind = .zeroGain ∨ o.kind = .disable) : Preflighted s s' n fields slew := by
  refine ⟨e, hlog, fun ⟨o, ho, hk⟩ => ?_⟩
  rcases hq o ho with h | h <;> rw [h] at hk <;> rcases hk with hk | hk <;> exact Kind.noConfusion hk

theorem stopIfEnabled_quiet (s : DmBackend) :
    ∃ e, (s.stopIfEnabled w).log = s.log ++ e ∧ ∀ o ∈ e, o.kind = .zeroGain ∨ o.kind = .disable := by
  unfold stopIfEnabled
  split_ifs
  · exact stop_quiet s
  · exact ⟨[], by simp, by simp⟩

/-- a write that failed before it sent anything -/
theorem refused (s : DmBackend) (f : DmFault) (n : ℕ) (fields : ℕ → Command) (slew : Value) :
    Unpowered s ((s.stopIfEnabled w).fail f) ∧ Preflighted s ((s.stopIfEnabled w).fail f) n fields slew := by
  obtain ⟨e, he, hq⟩ := stopIfEnabled_quiet (w := w) s
  exact ⟨unpowered_stopIfEnabled.congr rfl rfl rfl, .of_quiet he hq⟩

/-- **A write of a command**: it keeps `Backed`, it sends nothing before the whole batch passed, and it leaves no power where it fails. -/
theorem writeCommand_spec (h : Backed s) (n : ℕ) (fields : ℕ → Command) (slew : Value) :
    let r := s.writeCommand w n fields slew
    Backed r.1 ∧ r.1.motors.map wire = s.motors.map wire ∧ Preflighted s r.1 n fields slew ∧ (r.2 = false → Unpowered s r.1) := by
  have hkept := stopIfEnabled_wires (w := w) s
  unfold writeCommand
  split_ifs with hn
  · obtain ⟨hu, hp⟩ := refused (w := w) s .jointCount n fields slew
    exact ⟨backed_of_off hu.off, hkept, hp, fun _ => hu⟩
  · cases hbatch : s.preflight fields slew s.slots with
    | error r =>
      obtain ⟨hu, hp⟩ := refused (w := w) s (.preflight r.1 r.2) n fields slew
      exact ⟨backed_of_off hu.off, hkept, hp, fun _ => hu⟩
    | ok batch =>
      have hpass := preflight_ok hbatch
      have hpre : ∀ s' : DmBackend, (∃ e, s'.log = s.log ++ e) → Preflighted s s' n fields slew := fun s' ⟨e, he⟩ =>
        ⟨e, he, fun _ => ⟨not_not.mp hn, hpass⟩⟩
      obtain ⟨hb, hm, ha, e, he, -⟩ := enableAll_keeps (w := w) h
      have hwires : (s.enableAll w).1.motors.map wire = s.motors.map wire := by rw [hm]
      dsimp only
      generalize s.enableAll w = enabled at *
      have hsent := sendPacked_sends (w := w) (s := enabled.1) batch
      generalize each (sendPacked w) batch enabled.1 = sent at *
      obtain ⟨e', he', -⟩ := hsent.frames
      have hlog : sent.1.log = s.log ++ (e ++ e') := by rw [he', he, List.append_assoc]
      split_ifs with h₁ h₂
      · have hu : Unpowered s (enabled.1.stopPreservingFault w) := (unpowered_stop (w := w) hwires ⟨e, he⟩).congr rfl rfl rfl
        exact ⟨backed_of_off hu.off, (stop_wires enabled.1).trans hwires, hpre _ (hu.stopped.imp fun _ h => h.1), fun _ => hu⟩
      · have hu : Unpowered s (sent.1.stopPreservingFault w) :=
          (unpowered_stop (w := w) (hsent.motors.trans hwires) ⟨_, hlog⟩).congr rfl rfl rfl
        exact ⟨backed_of_off hu.off, (stop_wires sent.1).trans (hsent.motors.trans hwires), hpre _ (hu.stopped.imp fun _ h => h.1), fun _ => hu⟩
      · have hback : Backed sent.1 := hb.sends (hsent.mono fun k hk => by rw [hk]; exact Kind.noConfusion)
        exact ⟨hback, hsent.motors.trans hwires, hpre _ ⟨_, hlog⟩, fun hc => hc.elim⟩

/-! ## reads -/

theorem take_wires (k : ℤ) (f : Rx) (l : List BusMotor) : (take k f l).map wire = l.map wire := by
  induction l with
  | nil => rfl
  | cons m l ih =>
    unfold take
    split_ifs
    · split <;> rfl
    · rw [List.map_cons, List.map_cons, ih]

theorem receive_sends (s : DmBackend) (f : Rx) : Sends p s (s.receive f) := by
  unfold receive
  split_ifs
  · exact Sends.refl s
  · exact ⟨rfl, rfl, take_wires _ _ _, [], by simp, by simp⟩

theorem receives_sends (l : List Rx) : Sends p s (l.foldl receive s) := by
  induction l generalizing s with
  | nil => exact Sends.refl s
  | cons f l ih => exact (receive_sends s f).trans ih

theorem Sends.fail (h : Sends p s s') (f : DmFault) : Sends p s (s'.fail f) := ⟨h.enabled, h.active, h.motors, h.frames⟩

theorem drain_sends (s : DmBackend) (r : Recv) : Sends p s (s.drain r).1 := by
  unfold drain
  dsimp only
  split_ifs
  · exact (receives_sends r.frames).fail _
  · exact receives_sends r.frames

theorem probe_sends (f : Rx) (s : DmBackend) : Sends p s (probe f s).1 := by
  unfold probe
  dsimp only
  split_ifs
  · exact Sends.refl s
  · exact (Sends.refl s).fail _
  · exact Sends.refl s

theorem probeDrain_sends (s : DmBackend) (r : Recv) : Sends p s (s.probeDrain r).1 := by
  have h := each_sends (p := p) (s := s) (f := probe) r.frames probe_sends
  unfold probeDrain
  dsimp only
  split_ifs
  · exact h
  · exact h.fail _
  · exact h

theorem watch_sends (s : DmBackend) (e : ReadEnv) : Sends p s (s.watch e).1 := by
  have h := probeDrain_sends (p := p) s e.probe
  unfold watch
  dsimp only
  split_ifs
  · exact h
  · exact ⟨h.enabled, h.active, h.motors, h.frames⟩
  · exact Sends.refl s

theorem solicit_sends (s : DmBackend) : Sends (· = .zeroGain) s (s.solicit w).1 := by
  have h : Sends (· = .zeroGain) s (s.elicitAll w).1 := each_sends s.motors fun m s' => send8_sends rfl
  unfold solicit
  dsimp only
  split_ifs
  · exact ⟨rfl, rfl, rfl, [], by simp, by simp⟩
  · exact ⟨h.enabled, h.active, h.motors, h.frames⟩
  · exact h

theorem begin_sends (s : DmBackend) (now : ℕ) : Sends p s (s.begin_ now) := by
  have hstamped : (s.motors.map fun m => { m with lastRxNs := now }).map wire = s.motors.map wire := by
    rw [List.map_map]
    rfl
  unfold begin_
  dsimp only
  cases s.started with
  | true => exact ⟨rfl, rfl, rfl, [], by simp, by simp⟩
  | false => exact ⟨rfl, rfl, hstamped, [], by simp, by simp⟩

theorem collect_sends {l : List Round} {s : DmBackend} {r : DmBackend × Option ℕ} (h : collect l s = some r) : Sends p s r.1 := by
  induction l generalizing s with
  | nil => cases h
  | cons round l ih =>
    have hd := drain_sends (p := p) s round.recv
    unfold collect at h
    dsimp only at h
    split_ifs at h
    · exact Option.some.inj h ▸ hd
    · exact Option.some.inj h ▸ hd
    · exact hd.trans (ih h)

theorem awaitAll_sends {l : List Round} {now : ℕ} {s : DmBackend} {r : DmBackend × Option ℕ} (h : awaitAll l now s = some r) :
    Sends p s r.1 := by
  induction l generalizing s now with
  | nil =>
    unfold awaitAll at h
    split_ifs at h
    · exact Option.some.inj h ▸ Sends.refl s
    · cases hq : s.quiet with
      | none =>
        rw [hq] at h
        exact Option.some.inj h ▸ ⟨rfl, rfl, rfl, [], by simp, by simp⟩
      | some m =>
        rw [hq] at h
        cases h
  | cons round l ih =>
    have hd := drain_sends (p := p) s round.recv
    unfold awaitAll at h
    split_ifs at h
    · exact Option.some.inj h ▸ Sends.refl s
    · cases hq : s.quiet with
      | none =>
        rw [hq] at h
        exact Option.some.inj h ▸ ⟨rfl, rfl, rfl, [], by simp, by simp⟩
      | some m =>
        rw [hq] at h
        dsimp only at h
        split_ifs at h
        · exact Option.some.inj h ▸ (Sends.refl s).fail _
        · exact Option.some.inj h ▸ hd
        · exact hd.trans (ih h)

theorem report_sends (s : DmBackend) (now : ℕ) : Sends p s (s.report now).1 := by
  unfold report
  split
  · exact (Sends.refl s).fail _
  · exact Sends.refl s

/-- up to its result a read attempts zero-gain frames only -/
theorem readTick_sends {e : ReadEnv} {r : DmBackend × Option PlantState} (h : s.readTick w e = some r) : Sends (· = .zeroGain) s r.1 := by
  have hwatched := (begin_sends (p := (· = .zeroGain)) s e.now).trans (watch_sends (s.begin_ e.now) e)
  have hsolicited := hwatched.trans (solicit_sends (w := w) ((s.begin_ e.now).watch e).1)
  unfold readTick at h
  dsimp only at h
  split_ifs at h
  · exact Option.some.inj h ▸ hwatched
  · exact Option.some.inj h ▸ hsolicited
  · cases hc : collect e.collect (((s.begin_ e.now).watch e).1.solicit w).1 with
    | none =>
      rw [hc] at h
      cases h
    | some c =>
      have hcollect := hsolicited.trans (collect_sends hc)
      obtain ⟨s₁, due⟩ := c
      rw [hc] at h
      cases due with
      | none => exact Option.some.inj h ▸ hcollect
      | some now =>
        dsimp only at h
        cases ha : awaitAll e.startup now s₁ with
        | none =>
          rw [ha] at h
          cases h
        | some a =>
          have hawait := hcollect.trans (awaitAll_sends ha)
          obtain ⟨s₂, due⟩ := a
          rw [ha] at h
          cases due with
          | none => exact Option.some.inj h ▸ hawait
          | some now => exact Option.some.inj h ▸ hawait.trans (report_sends s₂ now)

/-- **A read** keeps `Backed`, and leaves no power where it fails. -/
theorem read_spec (h : Backed s) {e : ReadEnv} {r : DmBackend × Option PlantState} (hr : s.read w e = some r) :
    Backed r.1 ∧ r.1.motors.map wire = s.motors.map wire ∧ (r.2.isSome = false → Unpowered s r.1) := by
  unfold read at hr
  cases ht : s.readTick w e with
  | none =>
    rw [ht] at hr
    cases hr
  | some t =>
    have hs := readTick_sends ht
    have hback : Backed t.1 := h.sends (hs.mono fun k hk => by rw [hk]; exact Kind.noConfusion)
    obtain ⟨s₁, state⟩ := t
    rw [ht] at hr
    cases state with
    | some state =>
      obtain rfl := Option.some.inj hr
      exact ⟨hback, hs.motors, fun hc => Bool.noConfusion hc⟩
    | none =>
      dsimp only at hr
      obtain rfl := Option.some.inj hr
      split_ifs with hen
      · have hu : Unpowered s (s₁.stopPreservingFault w) :=
          (unpowered_stop (w := w) hs.motors (hs.frames.imp fun _ h => h.1)).congr rfl rfl rfl
        exact ⟨backed_of_off hu.off, (stop_wires s₁).trans hs.motors, fun _ => hu⟩
      · exact ⟨hback, hs.motors, fun _ => unpowered_of_off (hs.enabled.symm.trans (not_not.mp hen)) hs⟩

/-! ## every run -/

/-- the invariant: the motors of the bus, with every enabled one behind it -/
structure Sound (bus : Bus) (s : DmBackend) : Prop where
  motors : s.motors.map wire = bus.motors.map wire
  backed : Backed s

theorem Sound.distinct {bus : Bus} (h : Sound bus s) : (s.motors.map fun m => m.id).Nodup := by
  have hids : s.motors.map (fun m => m.id) = (s.motors.map wire).map Prod.fst := by rw [List.map_map]; rfl
  rw [hids, h.motors, List.map_map]
  exact bus.distinct

theorem Sound.call {bus : Bus} (h : Sound bus s) {c : Call} {r : DmBackend × Bool} (hr : s.call w c = some r) : Sound bus r.1 := by
  cases c with
  | read e =>
    obtain ⟨t, ht, rfl⟩ := Option.map_eq_some_iff.mp hr
    obtain ⟨hb, hm, -⟩ := read_spec h.backed ht
    exact ⟨hm.trans h.motors, hb⟩
  | writeCommand n fields slew =>
    obtain rfl := Option.some.inj hr
    obtain ⟨hb, hm, -⟩ := writeCommand_spec (w := w) h.backed n fields slew
    exact ⟨hm.trans h.motors, hb⟩
  | write =>
    obtain rfl := Option.some.inj hr
    have hu := (refused (w := w) s .torqueOnly 0 (fun _ => ⟨.nan, .nan, .nan, .nan, .nan⟩) .nan).1
    exact ⟨(stopIfEnabled_wires s).trans h.motors, backed_of_off hu.off⟩
  | setActiveMask mask stamp =>
    obtain rfl := Option.some.inj hr
    exact ⟨(setActiveMask_motors h.distinct h.backed mask stamp) ▸ h.motors, backed_setActiveMask h.distinct h.backed mask stamp⟩
  | stop =>
    obtain rfl := Option.some.inj hr
    exact ⟨(stop_wires s).trans h.motors, backed_of_off rfl⟩

/-- what one call promises -/
structure Fails (w : ℕ → Bool) (s : DmBackend) : Prop where
  preflighted : ∀ n fields slew, Preflighted s (s.writeCommand w n fields slew).1 n fields slew
  readClosed : ∀ e s', s.read w e = some (s', none) → Unpowered s s'
  writeClosed : Unpowered s (s.write w).1
  commandClosed : ∀ n fields slew, (s.writeCommand w n fields slew).2 = false → Unpowered s (s.writeCommand w n fields slew).1

/-- **The DM backend fails closed**, after every sequence of calls and whatever the bus does. -/
theorem dm_backend_fails_closed (bus : Bus) (activeMask : Mask) (now : ℕ) (w : ℕ → Bool) (calls : List Call) :
    let s := Run.run (step w) (opened bus activeMask now) calls
    Backed s ∧ Fails w s := by
  have hsound : Sound bus (Run.run (step w) (opened bus activeMask now) calls) := by
    refine Run.invariant (C := fun _ _ => True) ⟨rfl, backed_of_off rfl⟩ (fun s c _ h => ?_) (Run.along_of_forall (fun _ _ => trivial) calls)
    unfold step
    cases hc : s.call w c with
    | none => exact h
    | some r => exact h.call hc
  refine ⟨hsound.backed, ?_, ?_, ?_, ?_⟩
  · exact fun n fields slew => (writeCommand_spec hsound.backed n fields slew).2.2.1
  · exact fun e s' hr => (read_spec hsound.backed hr).2.2 rfl
  · exact unpowered_stopIfEnabled.congr rfl rfl rfl
  · exact fun n fields slew => (writeCommand_spec hsound.backed n fields slew).2.2.2

end DmBackend
end ArmControl.Plants.Dm
